import DubboGo.Go.Text
import DubboGo.Lib.FiniteMap
import DubboGo.Lib.Pool

/-!
# The counters of active requests

The filters of `filter/graceful_shutdown` count the invocations of a provider and of a consumer.  `Invoke` adds one, and
`OnResponse` takes it off if an attachment of the result says so.
-/

namespace DubboGo.Filter.ActiveCount

open Go Lib

inductive Side where
  | provider
  | consumer
  deriving DecidableEq

def countMarkedKey : Side → Str
  | .provider => str "dubbo-go-graceful-shutdown-provider-counted"
  | .consumer => str "dubbo-go-graceful-shutdown-consumer-counted"

/-- The attachments of a result that is not nil.  A value that is not a Boolean is `none`. -/
abbrev Result := Option (FiniteMap Str (Option Bool))

def markCountedResult (side : Side) (res : Result) : Result :=
  some ((res.getD ∅).insert (countMarkedKey side) (some true))

def shouldDecrementActive (side : Side) (res : Result) : Bool :=
  ((res.bind (·.lookup (countMarkedKey side))).join).getD false

inductive Stage where
  | arriving (side : Side)
  /-- It is counted, and the invoker is called. -/
  | invoking (side : Side)
  /-- `OnResponse`. -/
  | responding (side : Side) (res : Result)
  | returned
  | panicked

/-- What a step meets from outside: the decision about the request, with the result of one that is rejected, and what
the invoker does. -/
inductive Outcome where
  | rejects (res : Result)
  | admits
  | returns (res : Result)
  | panics

/-- The counters are `int32` numbers. -/
def advance (outcome : Outcome) (count : Side → ℤ) : Stage → Option ((Side → ℤ) × Stage)
  | .arriving side =>
    match outcome with
    | .rejects res => some (count, .responding side res)
    | .admits => some (Function.update count side (int32 (count side + 1)), .invoking side)
    | _ => none
  | .invoking side =>
    match outcome with
    | .returns res => some (count, .responding side (markCountedResult side res))
    -- the panic is recovered further out, past `OnResponse`
    | .panics => some (count, .panicked)
    | _ => none
  | .responding side res =>
    some (if shouldDecrementActive side res then Function.update count side (int32 (count side - 1)) else count,
      .returned)
  | .returned | .panicked => none

inductive Action where
  | invoke (side : Side)
  | advance (i : ℕ) (outcome : Outcome)

abbrev System := Pool (Side → ℤ) Stage

def start : System := ⟨fun _ => 0, []⟩

def step (s : System) : Action → Option System
  | .invoke side => some (s.spawn s.shared (.arriving side))
  | .advance i outcome => s.advance (advance outcome) i

/-- The invocation has been admitted and is not finished. -/
def Stage.isActive (side : Side) : Stage → Bool
  | .invoking side' => side' = side
  | .responding side' res => side' = side && shouldDecrementActive side' res
  | _ => false

/-- Nothing panics, and the result of a rejected request does not say that it was counted. -/
def Action.orderly : Action → Bool
  | .advance _ .panics => false
  | .advance _ (.rejects res) => !shouldDecrementActive .provider res && !shouldDecrementActive .consumer res
  | _ => true

variable {count count' : Side → ℤ} {a b : Stage} {others : Multiset Stage} {outcome : Outcome}

theorem shouldDecrementActive_mark (side : Side) (res : Result) :
    shouldDecrementActive side (markCountedResult side res) = true := by
  simp [shouldDecrementActive, markCountedResult]

theorem update_add {n : Side → ℤ} (h : ∀ side, count side = int32 (n side)) (changed side : Side) (d : ℤ) :
    Function.update count changed (int32 (count changed + d)) side =
      int32 (n side + if changed = side then d else 0) := by
  by_cases hside : changed = side
  · subst hside
    simp [h, int32_int32_add]
  · simp [hside, Function.update_of_ne (Ne.symm hside), h]

theorem balanced_advance (h : ∀ side, count side = int32 (tally (Stage.isActive side) (a ::ₘ others)))
    (ho : (Action.advance 0 outcome).orderly = true) (hadv : advance outcome count a = some (count', b)) (side : Side) :
    count' side = int32 (tally (Stage.isActive side) (b ::ₘ others)) := by
  simp only [tally_cons] at h ⊢
  cases a with
  | arriving own =>
    cases outcome with
    | rejects res =>
      cases hadv
      have hunmarked : shouldDecrementActive own res = false := by
        cases own <;> simp_all [Action.orderly]
      simpa [Stage.isActive, hunmarked] using h side
    | admits =>
      cases hadv
      rw [update_add h]
      by_cases hown : own = side <;> simp [Stage.isActive, hown]
    | _ => cases hadv
  | invoking own =>
    cases outcome with
    | returns res =>
      cases hadv
      simpa [Stage.isActive, shouldDecrementActive_mark] using h side
    | panics => cases ho
    | _ => cases hadv
  | responding own res =>
    cases hadv
    split_ifs with hmarked
    · rw [sub_eq_add_neg, update_add h]
      by_cases hown : own = side
      · subst hown
        simp [Stage.isActive, hmarked]
      · simp [Stage.isActive, hown]
    · simpa [Stage.isActive, hmarked] using h side
  | _ => cases hadv

theorem count_eq {s : System} (h : ReachedBy step (· = start) (fun _ act => act.orderly = true) s) (side : Side) :
    s.shared side = int32 (tally (Stage.isActive side) s.threads) := by
  refine ReachedBy.invariant
    (fun s : System => ∀ side, s.shared side = int32 (tally (Stage.isActive side) s.threads : ℕ)) ?_ ?_ h side
  · rintro s rfl side
    exact (int32_of_bounds (n := 0) (by norm_num) (by norm_num)).symm
  · intro s act t h ho hstep side
    cases act with
    | invoke own =>
      cases hstep
      rw [Pool.coe_threads_spawn, tally_cons]
      exact h side
    | advance i o =>
      obtain ⟨a, b, others, -, hadv, hthreads, hthreads'⟩ := Pool.advance_cases hstep
      rw [hthreads] at h
      rw [hthreads']
      exact balanced_advance h (by cases o <;> exact ho) hadv side

/-- If nothing panics, a counter is the number of the invocations that were admitted and are not finished exactly as
long as these are fewer than `2 ^ 31`. -/
theorem active_count {s : System} (h : ReachedBy step (· = start) (fun _ act => act.orderly = true) s) (side : Side) :
    s.shared side = tally (Stage.isActive side) s.threads ↔ tally (Stage.isActive side) s.threads < 2 ^ 31 := by
  have hcount := count_eq h side
  constructor
  · intro heq
    have hlt := int32_lt (tally (Stage.isActive side) s.threads)
    omega
  · intro hlt
    rw [hcount, int32_of_bounds (by omega) (by omega)]

theorem active_count_one : ∃ s : System, tally (Stage.isActive .provider) s.threads = 1 ∧ s.shared .provider = 1 := by
  obtain ⟨s, hs, hone⟩ := ReachedBy.of_run step (fun _ act => act.orderly = true) start
    [.invoke .provider, .advance 0 .admits] (fun s => tally (Stage.isActive .provider) s.threads = 1) (by decide +kernel)
  have hcount := (active_count hs .provider).2 (by omega)
  exact ⟨s, hone, by omega⟩

/-- An invocation that has panicked is counted for ever. -/
theorem panicked_counted : ∃ s : System, ReachedBy step (· = start) (fun _ _ => True) s ∧
    s.shared .provider = 1 ∧ tally (Stage.isActive .provider) s.threads = 0 :=
  ReachedBy.of_run step (fun _ _ => True) start
    [.invoke .provider, .advance 0 .admits, .advance 0 .panics]
    (fun s => s.shared .provider = 1 ∧ tally (Stage.isActive .provider) s.threads = 0) (by decide +kernel)

end DubboGo.Filter.ActiveCount
