import DubboGo.Go.Text
import DubboGo.Lib.Pool

/-!
# Graceful shutdown of a provider

`beforeShutdown` of `graceful_shutdown/shutdown.go`, and the invocations that go through
`providerGracefulShutdownFilter` of `filter/graceful_shutdown/provider_filter.go` meanwhile.
-/

namespace DubboGo.Filter.GracefulShutdown

open Go Lib

/-- What `beforeShutdown` does next. -/
inductive Phase where
  /-- It has not been called, or has yet to reach `waitAndAcceptNewRequests`. -/
  | running
  /-- `waitingProviderProcessedTimeout` is to look at its deadline and at `ProviderActiveCount`. -/
  | providerLoop (deadline : ℤ)
  /-- It has loaded the count, which was zero, and is to look at the time of the last request. -/
  | providerWindow (deadline : ℤ)
  /-- `RejectRequest.Store(true)` is next. -/
  | rejecting
  /-- `waitingConsumerProcessedTimeout`. -/
  | consumerLoop (deadline : ℤ)
  /-- `destroyProtocols` begins. -/
  | destroying
  deriving DecidableEq

namespace Phase

def deadline? : Phase → Option ℤ
  | .providerLoop deadline | .consumerLoop deadline => some deadline
  | _ => none

def isProviderLoop : Phase → Bool
  | .providerLoop _ => true
  | _ => false

/-- Between the count that was zero and the store of `RejectRequest`. -/
def isGap : Phase → Bool
  | .providerWindow _ | .rejecting => true
  | _ => false

/-- After the store of `RejectRequest`. -/
def isClosed : Phase → Bool
  | .consumerLoop _ | .destroying => true
  | _ => false

end Phase

/-- `ShutdownConfig` and the handlers that are registered; durations are numbers. -/
structure Config where
  stepTimeout : ℤ
  offlineRequestWindowTimeout : ℤ
  rejectRequestHandler : Str
  registered : Str → Bool

/-- The variables of a `ShutdownConfig`, and the clock, which counts from the zero `time.Time`.  The counters are
`int32` numbers. -/
structure State where
  now : ℤ
  phase : Phase
  rejectRequest : Bool
  providerActiveCount : ℤ
  providerLastReceivedRequestTime : ℤ
  consumerActiveCount : ℤ

inductive Stage where
  /-- The test of `RejectRequest`. -/
  | arriving
  /-- `ProviderActiveCount.Inc`. -/
  | accepted
  /-- The store of the time. -/
  | counted
  | invoking
  /-- `OnResponse`, for a result that is marked as counted or not. -/
  | responding (marked : Bool)
  | returned
  deriving DecidableEq

namespace Stage

/-- Between the increment and `OnResponse`. -/
def isCounted : Stage → Bool
  | .counted | .invoking | .responding true => true
  | _ => false

def isAccepted : Stage → Bool
  | .accepted => true
  | _ => false

end Stage

namespace Config

variable (c : Config)

def handler : Str := if c.rejectRequestHandler = [] then str "default" else c.rejectRequestHandler

def advance (s : State) : Stage → Option (State × Stage)
  | .arriving =>
    some (s, if s.rejectRequest && c.registered c.handler then .responding false else .accepted)
  | .accepted => some ({ s with providerActiveCount := int32 (s.providerActiveCount + 1) }, .counted)
  | .counted => some ({ s with providerLastReceivedRequestTime := s.now }, .invoking)
  | .invoking => some (s, .responding true)
  | .responding marked =>
    some (if marked then { s with providerActiveCount := int32 (s.providerActiveCount - 1) } else s, .returned)
  | .returned => none

/-- The next step of `beforeShutdown`. -/
def beforeShutdown (s : State) : Option State :=
  match s.phase with
  | .running =>
    some { s with
      phase := if c.stepTimeout < 0 then .rejecting else .providerLoop (s.now + c.stepTimeout) }
  | .providerLoop deadline =>
    some { s with
      phase := if deadline ≤ s.now then .rejecting
        else if 0 < s.providerActiveCount then .providerLoop deadline else .providerWindow deadline }
  | .providerWindow deadline =>
    some { s with
      phase := if s.now < s.providerLastReceivedRequestTime + c.offlineRequestWindowTimeout then
          .providerLoop deadline else .rejecting }
  | .rejecting =>
    some { s with
      rejectRequest := true
      phase := if c.stepTimeout ≤ 0 then .destroying else .consumerLoop (s.now + c.stepTimeout) }
  | .consumerLoop deadline =>
    some { s with
      phase := if deadline ≤ s.now ∨ s.consumerActiveCount ≤ 0 then .destroying
        else .consumerLoop deadline }
  | .destroying => none

inductive Action where
  | request
  | advance (i : ℕ)
  | shutdown
  | tick (n : ℕ)
  /-- The consumer side has begun or ended calls. -/
  | consume (count : ℤ)

abbrev System := Pool State Stage

def start (now : ℕ) : System where
  shared := ⟨now, .running, false, 0, 0, 0⟩
  threads := []

def step (s : System) : Action → Option System
  | .request => some (s.spawn s.shared .arriving)
  | .advance i => s.advance c.advance i
  | .shutdown => (c.beforeShutdown s.shared).map fun t => { s with shared := t }
  | .tick n => some { s with shared := { s.shared with now := s.shared.now + n } }
  | .consume count => some { s with shared := { s.shared with consumerActiveCount := int32 count } }

/-- No waiting loop ends because its deadline has passed; when the count is read as not positive, no request is between
its test and its increment and fewer than `2 ^ 31` are counted; none is tested between that and the store of
`RejectRequest`. -/
def Undisturbed (s : System) : Action → Prop
  | .shutdown => (∀ deadline ∈ s.shared.phase.deadline?, s.shared.now < deadline) ∧
    (s.shared.phase.isProviderLoop = true → s.shared.providerActiveCount ≤ 0 →
      tally Stage.isCounted s.threads < 2 ^ 31 ∧ ∀ stage ∈ s.threads, stage.isAccepted = false)
  | .advance i => s.threads[i]? = some .arriving → s.shared.phase.isGap = false
  | _ => True

instance decidableUndisturbed (s : System) (action : Action) : Decidable (Undisturbed s action) :=
  match action with
  | .shutdown => inferInstanceAs (Decidable (_ ∧ _))
  | .advance _ => inferInstanceAs (Decidable (_ → _))
  | .request => inferInstanceAs (Decidable True)
  | .tick _ => inferInstanceAs (Decidable True)
  | .consume _ => inferInstanceAs (Decidable True)

def InTime (s : System) : Action → Prop
  | .shutdown => ∀ deadline ∈ s.shared.phase.deadline?, s.shared.now < deadline
  | _ => True

instance decidableInTime (s : System) (action : Action) : Decidable (InTime s action) :=
  match action with
  | .shutdown => inferInstanceAs (Decidable (∀ _ ∈ Phase.deadline? _, _))
  | .advance _ => inferInstanceAs (Decidable True)
  | .request => inferInstanceAs (Decidable True)
  | .tick _ => inferInstanceAs (Decidable True)
  | .consume _ => inferInstanceAs (Decidable True)

structure Drained (s : State) (stages : Multiset Stage) : Prop where
  count : s.providerActiveCount = int32 (tally Stage.isCounted stages)
  quiet : (s.phase.isGap || s.phase.isClosed) = true →
    ∀ stage ∈ stages, stage.isCounted = false ∧ stage.isAccepted = false
  closed : s.phase.isClosed = true → s.rejectRequest = true

namespace Drained

variable {c : Config} {s t : State} {stages : Multiset Stage} {a b : Stage}

theorem move (h : Drained s (a ::ₘ stages)) (hphase : t.phase = s.phase) (hreject : t.rejectRequest = s.rejectRequest)
    (hcount : ∀ n : ℤ, s.providerActiveCount = int32 (n + a.isCounted.toNat) →
      t.providerActiveCount = int32 (n + b.isCounted.toNat))
    (hb : (s.phase.isGap || s.phase.isClosed) = true → b.isCounted = false ∧ b.isAccepted = false) :
    Drained t (b ::ₘ stages) := by
  obtain ⟨hold, hquiet, hclosed⟩ := h
  refine ⟨?_, ?_, ?_⟩
  · rw [tally_cons, Nat.cast_add] at hold ⊢
    exact hcount _ hold
  · rw [hphase]
    intro hq
    exact Multiset.forall_mem_cons.2 ⟨hb hq, (Multiset.forall_mem_cons.1 (hquiet hq)).2⟩
  · rw [hphase, hreject]
    exact hclosed

theorem advance (h : Drained s (a ::ₘ stages)) (hregistered : c.registered c.handler = true)
    (hgap : a = .arriving → s.phase.isGap = false) (hstep : c.advance s a = some (t, b)) :
    Drained t (b ::ₘ stages) := by
  have hself := fun hq => h.quiet hq a (Multiset.mem_cons_self a stages)
  cases a with
  | arriving =>
    cases hstep
    rw [hregistered, Bool.and_true]
    split_ifs with hreject
    · exact h.move rfl rfl (fun _ heq => heq) fun _ => ⟨rfl, rfl⟩
    · refine h.move rfl rfl (fun _ heq => heq) fun hq => ?_
      rw [hgap rfl, Bool.false_or] at hq
      exact absurd (h.closed hq) hreject
  | accepted =>
    cases hstep
    refine h.move rfl rfl (fun n heq => ?_) fun hq => nomatch (hself hq).2
    simp [heq, int32_int32_add, Stage.isCounted]
  | counted | invoking =>
    cases hstep
    exact h.move rfl rfl (fun _ heq => heq) fun hq => nomatch (hself hq).1
  | responding marked =>
    cases marked with
    | true =>
      cases hstep
      refine h.move rfl rfl (fun n heq => ?_) fun hq => nomatch (hself hq).1
      simp [heq, int32_int32_add, sub_eq_add_neg, Stage.isCounted]
    | false =>
      cases hstep
      exact h.move rfl rfl (fun _ heq => heq) fun _ => ⟨rfl, rfl⟩
  | returned => cases hstep

theorem beforeShutdown (h : Drained s stages) (htimeout : 0 < c.stepTimeout)
    (hdeadline : ∀ dl ∈ s.phase.deadline?, s.now < dl)
    (hz : s.phase.isProviderLoop = true → s.providerActiveCount ≤ 0 →
      tally Stage.isCounted stages < 2 ^ 31 ∧ ∀ st ∈ stages, st.isAccepted = false)
    (hstep : c.beforeShutdown s = some t) : Drained t stages := by
  obtain ⟨hcount, hquiet, hclosed⟩ := h
  unfold Config.beforeShutdown at hstep
  cases hphase : s.phase with
  | running =>
    rw [hphase] at hstep
    cases hstep
    rw [if_neg (by omega)]
    exact ⟨hcount, nofun, nofun⟩
  | providerLoop dl =>
    rw [hphase] at hstep hdeadline hz
    cases hstep
    rw [if_neg (not_le.2 (hdeadline dl rfl))]
    split_ifs with hactive
    · exact ⟨hcount, nofun, nofun⟩
    · -- nobody is counted, and nobody is about to be
      obtain ⟨hfew, hnone⟩ := hz rfl (not_lt.1 hactive)
      have hzero : tally Stage.isCounted stages = 0 := by
        rw [int32_of_bounds (by omega) (by omega)] at hcount
        omega
      exact ⟨hcount, fun _ st hstage => ⟨tally_eq_zero_iff.1 hzero st hstage, hnone st hstage⟩, nofun⟩
  | providerWindow dl =>
    rw [hphase] at hstep hquiet
    cases hstep
    split_ifs
    · exact ⟨hcount, nofun, nofun⟩
    · exact ⟨hcount, fun _ => hquiet rfl, nofun⟩
  | rejecting =>
    rw [hphase] at hstep hquiet
    cases hstep
    exact ⟨hcount, fun _ => hquiet rfl, fun _ => rfl⟩
  | consumerLoop dl =>
    rw [hphase] at hstep hquiet hclosed
    cases hstep
    exact ⟨hcount, fun _ => hquiet rfl, fun _ => hclosed rfl⟩
  | destroying =>
    rw [hphase] at hstep
    cases hstep

end Drained

theorem drained {c : Config} (hregistered : c.registered c.handler = true) (htimeout : 0 < c.stepTimeout)
    {now : ℕ} {s : System} (hs : ReachedBy c.step (· = start now) Undisturbed s) : Drained s.shared s.threads := by
  refine ReachedBy.invariant (fun s => Drained s.shared s.threads) ?_ ?_ hs
  · rintro s rfl
    exact ⟨(int32_of_bounds (n := 0) (by norm_num) (by norm_num)).symm, nofun, nofun⟩
  · intro s act t h hcondition hstep
    cases act with
    | request =>
      cases hstep
      rw [Pool.coe_threads_spawn]
      refine ⟨?_, ?_, h.closed⟩
      · exact h.count
      · exact fun hq => Multiset.forall_mem_cons.2 ⟨⟨rfl, rfl⟩, h.quiet hq⟩
    | advance i =>
      obtain ⟨a, b, others, hi, hadvance, hthreads, hthreads'⟩ := Pool.advance_cases hstep
      rw [hthreads] at h
      rw [hthreads']
      exact h.advance hregistered (fun ha => hcondition (ha ▸ hi)) hadvance
    | shutdown =>
      obtain ⟨u, hu, rfl⟩ := Option.map_eq_some_iff.1 hstep
      exact h.beforeShutdown htimeout hcondition.1 hcondition.2 hu
    | tick n =>
      cases hstep
      exact ⟨h.count, h.quiet, h.closed⟩
    | consume count =>
      cases hstep
      exact ⟨h.count, h.quiet, h.closed⟩

/-- When `destroyProtocols` begins no invocation is accepted or counted any more, if the waiting loops do not end at
their deadlines, no request slips in between the last count and the store of `RejectRequest`, the count has not
wrapped around when it is read, and the handler for rejected requests is registered. -/
theorem no_request_cut_off (c : Config) (hregistered : c.registered c.handler = true)
    (htimeout : 0 < c.stepTimeout) {now : ℕ} {s : System}
    (hs : ReachedBy c.step (· = start now) Undisturbed s) (hphase : s.shared.phase = .destroying) :
    ∀ stage ∈ s.threads, stage.isCounted = false ∧ stage.isAccepted = false := by
  apply (drained hregistered htimeout hs).quiet
  rw [hphase]
  rfl

def threeSeconds : Config where
  stepTimeout := 3000
  offlineRequestWindowTimeout := 1000
  rejectRequestHandler := []
  registered := fun name => name = str "default" ∨ name = str "log"

theorem no_request_cut_off_after_one :
    ∃ s, ReachedBy threeSeconds.step (· = start 5000) Undisturbed s ∧ s.shared.phase = .destroying ∧
      ∀ stage ∈ s.threads, stage.isCounted = false ∧ stage.isAccepted = false := by
  obtain ⟨s, hs, hphase⟩ := ReachedBy.of_run threeSeconds.step Undisturbed (start 5000)
    [.request, .advance 0, .advance 0, .advance 0, .shutdown, .advance 0, .advance 0, .shutdown, .shutdown,
      .tick 2000, .shutdown, .shutdown, .shutdown, .shutdown] (fun s => s.shared.phase = .destroying) (by decide +kernel)
  exact ⟨s, hs, hphase, no_request_cut_off _ (by decide) (by decide) hs hphase⟩

/-- A request passes its test, the count is read as zero, and the request is counted before the protocols
are destroyed. -/
theorem accepted_request_cut_off :
    ∃ s, ReachedBy threeSeconds.step (· = start 5000) InTime s ∧ s.shared.phase = .destroying ∧
      .invoking ∈ s.threads :=
  ReachedBy.of_run threeSeconds.step InTime (start 5000)
    [.request, .advance 0, .shutdown, .shutdown, .shutdown, .shutdown, .advance 0, .advance 0, .shutdown]
    (fun s => s.shared.phase = .destroying ∧ .invoking ∈ s.threads) (by decide +kernel)

end Config

end DubboGo.Filter.GracefulShutdown
