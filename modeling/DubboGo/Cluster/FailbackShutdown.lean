import DubboGo.Cluster.Failback

/-!
# The shutdown of the failback cluster invoker

What `Destroy` leaves behind, for every interleaving of calls, processor, retries and shutdown.  The part of the state
that matters is a `Lifecycle`, which most steps keep (`step_lifecycle`); the invariant is `Orderly`.
-/

namespace DubboGo.Cluster.Failback

open Go Lib

variable {ι σ κ ν : Type} [DecidableEq ι] {c : Setup ι σ} {s t : State ι σ κ ν} {r : Retry ι σ}
  {rest : Multiset (Retry ι σ)} {l l' : Lifecycle} {late : Bool} {next : Shutdown}

/-- The part of the state that the shutdown is about; `held` are the channels of the retries. -/
structure Lifecycle where
  stopped : Bool
  destroyed : Bool
  group : CompletionGroup
  held : Multiset (Option ℕ)
  shutdown : Shutdown
  returned : ℕ
  started : ℕ
  timedOut : Bool
  directoryDestroyed : ℕ

def State.lifecycle (s : State ι σ κ ν) : Lifecycle where
  stopped := s.stopped
  destroyed := s.destroyed
  group := s.group
  held := s.goroutines.map Retry.channel
  shutdown := s.shutdown
  returned := s.returned
  started := s.started
  timedOut := s.timedOut
  directoryDestroyed := s.directoryDestroyed

/-- The steps of a lifecycle: a retry starts or finishes, or the shutdown goes on. -/
inductive LifecycleStep (l : Lifecycle) : Lifecycle → Prop where
  | same : LifecycleStep l l
  | start (h : l.stopped = false) : LifecycleStep l { l with
      group := l.group.join
      held := l.group.join.current ::ₘ l.held
      started := l.started + 1 }
  | finish (channel : Option ℕ) (rest : Multiset (Option ℕ)) (h : l.held = channel ::ₘ rest) :
      LifecycleStep l { l with group := l.group.leave channel, held := rest }
  | stop (processDone : Bool) (h : l.shutdown = .idle) : LifecycleStep l { l with
      stopped := true
      shutdown := .waitProcess processDone l.group.current }
  | wait (processEnded late : Bool) (next : Shutdown)
      (h : WaitMove processEnded l.group.closed l.shutdown late next) :
      LifecycleStep l { l with shutdown := next, timedOut := l.timedOut || late }
  | destroy (h : l.shutdown = .destroying) : LifecycleStep l { l with
      destroyed := true
      directoryDestroyed := if l.destroyed then l.directoryDestroyed else l.directoryDestroyed + 1
      shutdown := .done }
  | return (h : l.shutdown = .done) : LifecycleStep l { l with returned := l.returned + 1 }

omit [DecidableEq ι] in
theorem startProcessor_lifecycle (s : State ι σ κ ν) (ctx : Option (Context κ ν)) (task : Task ι σ) :
    (startProcessor s ctx task).lifecycle = s.lifecycle := by
  unfold startProcessor
  split <;> rfl

omit [DecidableEq ι] in
theorem enqueueInitialRetry_lifecycle (s : State ι σ κ ν) (ctx : Option (Context κ ν))
    (task : Task ι σ) : (enqueueInitialRetry c s ctx task).lifecycle = s.lifecycle := by
  unfold enqueueInitialRetry
  dsimp only
  split_ifs
  · rfl
  · exact startProcessor_lifecycle s ctx task
  · exact startProcessor_lifecycle s ctx task

omit [DecidableEq ι] in
theorem checkRetry_lifecycle (s : State ι σ κ ν) (task : Task ι σ) (stop : Bool) :
    (checkRetry s task stop).lifecycle = s.lifecycle := by
  unfold checkRetry enqueueRetry
  dsimp only
  split_ifs <;> rfl

omit [DecidableEq ι] in
theorem startRetry_lifecycle (hs : s.stopped = false) (hc : s.cancelled = false) (task : Task ι σ) :
    (startRetry s task).lifecycle = { s.lifecycle with
      group := s.group.join
      held := s.group.join.current ::ₘ s.lifecycle.held
      started := s.started + 1 } := by
  rw [startRetry, if_neg (by rw [hs, hc]; decide)]
  simp [State.lifecycle]

omit [DecidableEq ι] in
theorem baseDestroy_lifecycle (s : State ι σ κ ν) :
    { baseDestroy s with shutdown := .done }.lifecycle = { s.lifecycle with
      destroyed := true
      directoryDestroyed := if s.destroyed then s.directoryDestroyed else s.directoryDestroyed + 1
      shutdown := .done } := by
  unfold baseDestroy
  split_ifs with hd
  · simp [State.lifecycle, hd]
  · rfl

theorem RetryMove.channel_eq {cancelled : Bool} {r' : Retry ι σ} (h : RetryMove c cancelled r r') :
    r'.channel = r.channel := by
  cases h <;> rfl

omit [DecidableEq ι] in
theorem held_cons (h : s.goroutines = r ::ₘ rest) : s.lifecycle.held = r.channel ::ₘ rest.map Retry.channel := by
  dsimp only [State.lifecycle]
  rw [h, Multiset.map_cons]

omit [DecidableEq ι] in
theorem lifecycle_of_replace (r' : Retry ι σ) (h : s.goroutines = r ::ₘ rest) (hch : r'.channel = r.channel) :
    { s with goroutines := r' ::ₘ rest }.lifecycle = s.lifecycle := by
  have hheld := held_cons h
  rw [← hch, ← Multiset.map_cons] at hheld
  exact congrArg (fun held => { s.lifecycle with held := held }) hheld.symm

/-- Of every step, what it does to the processor, the retries and `Destroy`. -/
theorem step_lifecycle {e : Event ι σ} (h : Step c s e t) : LifecycleStep s.lifecycle t.lifecycle := by
  cases h with
  | invoke => exact .same
  | enqueueInitialRetry ctx task rest h =>
    rw [enqueueInitialRetry_lifecycle]
    exact .same
  | process => exact .same
  | get => exact .same
  | startRetry task hp =>
    by_cases hstop : (s.stopped || s.cancelled) = true
    · rw [startRetry, if_pos hstop]
      exact .same
    · rw [Bool.or_eq_true, not_or, Bool.not_eq_true, Bool.not_eq_true] at hstop
      have heq := startRetry_lifecycle (s := { s with processor := some .polling }) hstop.1 hstop.2 task
      rw [heq]
      exact .start hstop.1
  | retry r r' rest h hmove =>
    rw [lifecycle_of_replace r' h hmove.channel_eq]
    exact .same
  | attempt t ch i ctx rest h hc hctx =>
    have heq := lifecycle_of_replace ⟨t, ch, .invoking i⟩ h rfl
    exact heq ▸ .same
  | checkRetry t ch stop rest h =>
    rw [checkRetry_lifecycle, lifecycle_of_replace ⟨t, ch, .finishing⟩ h rfl]
    exact .same
  | finishRetry t ch rest h => exact .finish ch (rest.map Retry.channel) (held_cons h)
  | destroy => exact .same
  | stop hd h => exact .stop s.processor.isSome h
  | wait late next h => exact .wait (Processor.isEnded s.processor) late next h
  | baseDestroy h =>
    rw [baseDestroy_lifecycle]
    exact .destroy h
  | «return» n hd h => exact .return h

/-! ## The invariant -/

/-- The waits of the shutdown are for the channel that is still the current one. -/
def Lifecycle.Waits (l : Lifecycle) : Prop :=
  match l.shutdown with
  | .waitProcess _ retryDone => retryDone = l.group.current
  | .waitRetry retryDone => retryDone = l.group.current
  | _ => True

structure Orderly (l : Lifecycle) : Prop where
  group : l.group.Sound l.held
  stopped : l.stopped = true ↔ l.shutdown ≠ .idle
  waits : l.Waits
  quiet : l.shutdown = .destroying ∨ l.shutdown = .done → l.timedOut = false → l.held = 0
  directory : l.destroyed = true ∧ l.directoryDestroyed = 1 ∧ l.shutdown = .done ∨
    l.destroyed = false ∧ l.directoryDestroyed = 0 ∧ l.shutdown ≠ .done
  returned : 0 < l.returned → l.shutdown = .done

omit [DecidableEq ι] in
theorem orderly_init : Orderly (init : State ι σ κ ν).lifecycle where
  group := .new
  stopped := by simp [State.lifecycle, init]
  waits := trivial
  quiet := by simp [State.lifecycle, init]
  directory := .inr ⟨rfl, rfl, by simp [State.lifecycle, init]⟩
  returned := by simp [State.lifecycle, init]

theorem Orderly.before_done (h : Orderly l) (hne : l.shutdown ≠ .done) :
    l.destroyed = false ∧ l.directoryDestroyed = 0 ∧ ¬ 0 < l.returned := by
  rcases h.directory with ⟨-, -, hd⟩ | ⟨hd, hz, -⟩
  · exact absurd hd hne
  · exact ⟨hd, hz, fun hpos => hne (h.returned hpos)⟩

theorem Orderly.advance (h : Orderly l) (hfrom : l.shutdown ≠ .idle ∧ l.shutdown ≠ .done)
    (hto : next ≠ .idle ∧ next ≠ .done) (hwaits : { l with shutdown := next }.Waits)
    (hquiet : next = .destroying → (l.timedOut || late) = false → l.held = 0) :
    Orderly { l with shutdown := next, timedOut := l.timedOut || late } := by
  have hstop := h.stopped.2 hfrom.1
  obtain ⟨hd, hz, hret⟩ := h.before_done hfrom.2
  refine ⟨h.group, ⟨fun _ => hto.1, fun _ => hstop⟩, hwaits, ?_, .inr ⟨hd, hz, hto.2⟩, fun hpos => absurd hpos hret⟩
  rintro (hnext | hnext)
  · exact hquiet hnext
  · exact absurd hnext hto.2

theorem WaitMove.orderly (h : Orderly l) {processEnded : Bool}
    (hmove : WaitMove processEnded l.group.closed l.shutdown late next) :
    Orderly { l with shutdown := next, timedOut := l.timedOut || late } := by
  obtain ⟨stopped, destroyed, group, held, shutdown, ret, started, timedOut, destroys⟩ := l
  cases hmove with
  | process pd rd hpd => exact h.advance (by simp) (by simp) h.waits (by simp)
  | processTimeout pd rd | retryTimeout rd => exact h.advance (by simp) (by simp) trivial (by simp)
  | retry rd hclosed =>
    have hrd : rd = group.current := h.waits
    have hheld : held = 0 := h.group.held_eq_zero fun n hn => hclosed n (hrd.trans hn)
    exact h.advance (by simp) (by simp) trivial fun _ _ => hheld

theorem LifecycleStep.orderly (h : Orderly l) (hst : LifecycleStep l l') : Orderly l' := by
  cases hst with
  | same => exact h
  | start hs =>
    have hidle : l.shutdown = .idle := by
      by_contra hne
      rw [h.stopped.2 hne] at hs
      cases hs
    refine ⟨h.group.join, h.stopped, ?_, ?_, h.directory, h.returned⟩
    · rw [hidle]
      trivial
    · rw [hidle]
      rintro (hd | hd) <;> cases hd
  | finish chan rest hheld =>
    have hgroup := h.group
    rw [hheld] at hgroup
    refine ⟨hgroup.leave, h.stopped, ?_, ?_, h.directory, h.returned⟩
    · have hwaits := h.waits
      dsimp only [Lifecycle.Waits] at hwaits ⊢
      rw [CompletionGroup.leave_current]
      exact hwaits
    · intro hd ht
      have hzero := h.quiet hd ht
      rw [hheld] at hzero
      exact absurd hzero Multiset.cons_ne_zero
  | stop processDone hidle =>
    obtain ⟨hd, hz, hret⟩ := h.before_done (by rw [hidle]; simp)
    exact ⟨h.group, by simp, rfl, by simp, .inr ⟨hd, hz, by simp⟩, fun hpos => absurd hpos hret⟩
  | wait processEnded late next hmove => exact hmove.orderly h
  | destroy hd =>
    have hstop : l.stopped = true := h.stopped.2 (by rw [hd]; simp)
    obtain ⟨hno, hz, -⟩ := h.before_done (by rw [hd]; simp)
    exact ⟨h.group, by simp [hstop], trivial, fun _ ht => h.quiet (.inl hd) ht,
      .inl ⟨rfl, by simp [hno, hz], rfl⟩, fun _ => rfl⟩
  | «return» hd => exact ⟨h.group, h.stopped, h.waits, h.quiet, h.directory, fun _ => hd⟩

theorem Reached.orderly (h : Reached c s) : Orderly s.lifecycle := by
  apply Reachable.invariant ?_ ?_ h
  · rintro s rfl
    exact orderly_init
  · rintro s t hs ⟨e, -, hst⟩
    exact (step_lifecycle hst).orderly hs

theorem LifecycleStep.started_eq (hst : LifecycleStep l l') (hs : l.stopped = true) :
    l'.started = l.started ∧ l'.stopped = true := by
  cases hst with
  | start h =>
    rw [h] at hs
    cases hs
  | stop => exact ⟨rfl, rfl⟩
  | same | finish | wait | destroy | «return» => exact ⟨rfl, hs⟩

def Leads (c : Setup ι σ) : State ι σ κ ν → State ι σ κ ν → Prop :=
  Relation.ReflTransGen fun s t => ∃ e, Step c s e t

theorem started_eq_of_stopped (hs : s.stopped = true) (hrun : Leads c s t) :
    t.started = s.started ∧ t.stopped = true := by
  induction hrun with
  | refl => exact ⟨rfl, hs⟩
  | tail _ hst ih =>
    obtain ⟨e, hst⟩ := hst
    obtain ⟨heq, hstop⟩ := (step_lifecycle hst).started_eq ih.2
    exact ⟨heq.trans ih.1, hstop⟩

/-! ## The end of a shutdown -/

theorem Reached.leads_of_destroying (h : Reached c s) (hs : s.shutdown = .destroying) :
    ∃ t, Leads c s t ∧ t.directoryDestroyed = 1 := by
  obtain ⟨hno, hz, -⟩ := h.orderly.before_done (by simp [State.lifecycle, hs])
  change s.destroyed = false at hno
  change s.directoryDestroyed = 0 at hz
  exact ⟨_, .single ⟨_, .baseDestroy s hs⟩, by simp [baseDestroy, hno, hz]⟩

theorem Reached.leads_of_timeout (h : Reached c s)
    (hmove : WaitMove (Processor.isEnded s.processor) s.group.closed s.shutdown true .destroying) :
    ∃ t, Leads c s t ∧ t.directoryDestroyed = 1 := by
  have hst := Step.wait (c := c) s true .destroying hmove
  obtain ⟨t, hrun, ht⟩ := Reached.leads_of_destroying (h.step ⟨_, trivial, hst⟩) rfl
  exact ⟨t, .head ⟨_, hst⟩ hrun, ht⟩

theorem Reached.leads_to_destroyed (h : Reached c s) (hd : 0 < s.destroyers) :
    ∃ t, Leads c s t ∧ t.directoryDestroyed = 1 := by
  cases hs : s.shutdown with
  | idle =>
    have hst := Step.stop (c := c) s hd hs
    obtain ⟨t, hrun, ht⟩ :=
      Reached.leads_of_timeout (h.step ⟨_, trivial, hst⟩) (.processTimeout _ _)
    exact ⟨t, .head ⟨_, hst⟩ hrun, ht⟩
  | waitProcess processDone retryDone =>
    apply h.leads_of_timeout
    rw [hs]
    exact .processTimeout processDone retryDone
  | waitRetry retryDone =>
    apply h.leads_of_timeout
    rw [hs]
    exact .retryTimeout retryDone
  | destroying => exact h.leads_of_destroying hs
  | done =>
    rcases h.orderly.directory with ⟨-, hone, -⟩ | ⟨-, -, hne⟩
    · exact ⟨s, .refl, hone⟩
    · exact absurd hs hne

/-- In every state: once it is stopped, no retry is started; no completion channel is closed twice, and those are
closed whose retries have finished; if the directory is destroyed and no wait has timed out, no retry is left; and the
directory is destroyed once, before a `Destroy` returns. -/
theorem shutdown_clean (s : State ι σ κ ν) (h : Reached c s) :
    (s.stopped = true → ∀ t, Leads c s t → t.started = s.started) ∧ s.group.closed.Nodup ∧
    (∀ n, n ∈ s.group.closed ↔ n < s.group.made ∧ ∀ r ∈ s.goroutines, r.channel ≠ some n) ∧
    (0 < s.directoryDestroyed → s.timedOut = false → s.goroutines = 0) ∧ s.directoryDestroyed ≤ 1 ∧
    (0 < s.destroyers → ∃ t, Leads c s t ∧ t.directoryDestroyed = 1) ∧
    (0 < s.returned → s.directoryDestroyed = 1) := by
  have ho := h.orderly
  refine ⟨fun hs t hrun => (started_eq_of_stopped hs hrun).1, ho.group.nodup, fun n => ?_, ?_, ?_,
    h.leads_to_destroyed, ?_⟩
  · refine (ho.group.mem_closed_iff n).trans (and_congr_right fun _ => ?_)
    simp [State.lifecycle]
  · intro hpos ht
    rcases ho.directory with ⟨-, -, hd⟩ | ⟨-, hz, -⟩
    · exact Multiset.map_eq_zero.1 (ho.quiet (.inr hd) ht)
    · exact absurd hz hpos.ne'
  · rcases ho.directory with ⟨-, hone, -⟩ | ⟨-, hz, -⟩
    · exact hone.le
    · exact hz.le.trans zero_le_one
  · intro hpos
    rcases ho.directory with ⟨-, hone, -⟩ | ⟨-, -, hne⟩
    · exact hone
    · exact absurd (ho.returned hpos) hne

/-- A `Destroy` that comes while a retry is about to begin waits for it. -/
theorem destroy_awaits_first_retry :
    ∃ s : State ℕ Unit Str Str, Reached (oneProvider (str "3") (str "100")) s ∧ s.started = 1 ∧
      s.returned = 1 ∧ s.goroutines = 0 ∧ s.directoryDestroyed = 1 := by
  have h1 : Reached (oneProvider (str "3") (str "100")) (firstRetry (κ := Str) (ν := Str) _ none) :=
    reachedBy_firstRetry _ (fun _ => trivial) fun _ => trivial
  have h2 := h1.step ⟨_, trivial, .destroy _⟩
  have h3 := h2.step ⟨_, trivial, .stop _ Nat.one_pos rfl⟩
  have h4 := h3.step ⟨_, trivial, .retry _ _ _ 0 rfl (.cancelBegun _ _ rfl)⟩
  have h5 := h4.step ⟨_, trivial, .finishRetry _ _ _ 0 rfl⟩
  have h6 := h5.step ⟨_, trivial, .process _ _ _ _ rfl rfl (.cancelPolling rfl)⟩
  have h7 := h6.step ⟨_, trivial, .wait _ false (.waitRetry (some 0)) (.process true _ fun _ => rfl)⟩
  have h8 := h7.step ⟨_, trivial, .wait _ false .destroying (.retry _ (by decide))⟩
  have h9 := h8.step ⟨_, trivial, .baseDestroy _ rfl⟩
  have h10 := h9.step ⟨_, trivial, .return _ 0 rfl rfl⟩
  obtain ⟨-, -, -, hquiet, -, -, hone⟩ := shutdown_clean _ h10
  exact ⟨_, h10, rfl, rfl, hquiet Nat.one_pos rfl, hone Nat.one_pos⟩

end DubboGo.Cluster.Failback
