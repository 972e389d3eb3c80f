import DubboGo.Registry.InstancesListener

/-!
# The metadata retry timer

`scheduleMetadataRetry` arms one timer for all unresolved revisions and keeps it in `retryTimer`.  The
callback of a timer that has fired may run late, and then clears `retryTimer` whichever timer is there.
-/

namespace DubboGo.Registry.InstancesListener

open Go Common Lib ServiceDiscovery Finmap

def Stage.fired? : Stage → Option ℕ
  | .firing t => some t
  | _ => none

namespace State

variable {s t : State} {fired : Multiset ℕ} {round : Round} {a b : Stage}

/-- No timer is armed but the one in `retryTimer`, and that not after the listener was closed or without
notify listeners. -/
structure OneTimer (s : State) (fired : Multiset ℕ) : Prop where
  stored : ∀ n ∈ s.timers.armed, s.retryTimer = some n
  quiet : s.closed = true ∨ s.listeners = ∅ → s.retryTimer = none
  fired : ∀ n ∈ fired, n ∉ s.timers.armed ∧ n < s.timers.next

namespace OneTimer

theorem congr (h : OneTimer s fired) (htimers : t.timers = s.timers)
    (hretryTimer : t.retryTimer = s.retryTimer) (hclosed : t.closed = s.closed)
    (hlisteners : t.listeners = s.listeners) : OneTimer t fired := by
  obtain ⟨hstored, hquiet, hfired⟩ := h
  rw [← htimers, ← hretryTimer] at hstored
  rw [← hretryTimer, ← hclosed, ← hlisteners] at hquiet
  rw [← htimers] at hfired
  exact ⟨hstored, hquiet, hfired⟩

theorem of_stop (hstored : ∀ n ∈ s.timers.armed, s.retryTimer = some n)
    (hfired : ∀ n ∈ fired, n ∉ s.timers.armed ∧ n < s.timers.next) : OneTimer s.stopRetryTimer fired := by
  unfold stopRetryTimer
  split
  · rename_i hnone
    exact ⟨hstored, fun _ => hnone, hfired⟩
  · rename_i m hsome
    refine ⟨?_, fun _ => rfl, ?_⟩
    · intro n hn
      obtain ⟨hne, hmem⟩ := mem_erase.1 hn
      have heq := (hstored n hmem).symm.trans hsome
      exact absurd (Option.some.inj heq) hne
    · intro n hn
      exact ⟨fun hmem => (hfired n hn).1 (mem_erase.1 hmem).2, (hfired n hn).2⟩

theorem scheduleMetadataRetry (h : OneTimer s fired) : OneTimer s.scheduleMetadataRetry fired := by
  unfold State.scheduleMetadataRetry
  split_ifs with hidle hsome
  · exact (of_stop h.stored h.fired).congr rfl rfl rfl rfl
  · exact h
  · -- no timer was stored, so that none was armed
    have hnone : s.retryTimer = none := Option.not_isSome_iff_eq_none.1 hsome
    refine ⟨?_, ?_, ?_⟩
    · intro n hn
      rcases mem_insert.1 hn with rfl | hn
      · rfl
      · have heq := h.stored n hn
        rw [hnone] at heq
        cases heq
    · intro hquiet
      exact absurd (.inr hquiet) hidle
    · intro n hn
      obtain ⟨hnot, hlt⟩ := h.fired n hn
      refine ⟨?_, Nat.lt_succ_of_lt hlt⟩
      intro hmem
      rcases mem_insert.1 hmem with rfl | hmem
      · exact hlt.false
      · exact hnot hmem

theorem attach (h : OneTimer s fired) (skey : Str) (notify : ℕ) :
    OneTimer { s with listeners := s.listeners.insert skey notify } fired := by
  refine ⟨h.stored, ?_, h.fired⟩
  rintro (hclosed | hempty)
  · exact h.quiet (.inl hclosed)
  · have hmem : skey ∈ s.listeners.insert skey notify := mem_insert.2 (.inl rfl)
    dsimp only at hempty
    rw [hempty] at hmem
    exact absurd hmem notMem_empty

theorem removeListener (h : OneTimer s fired) (skey : Str) : OneTimer (s.removeListener skey) fired := by
  unfold State.removeListener
  dsimp only
  split_ifs with hempty
  · exact of_stop h.stored h.fired
  · refine ⟨h.stored, ?_, h.fired⟩
    rintro (hclosed | hnone)
    · exact h.quiet (.inl hclosed)
    · exact absurd hnone hempty

theorem callback {n : ℕ} (h : OneTimer s (n ::ₘ fired)) (hn : s.retryTimer ∈ [none, some n]) :
    OneTimer { s with retryTimer := none } fired := by
  refine ⟨?_, fun _ => rfl, fun m hm => h.fired m (Multiset.mem_cons_of_mem hm)⟩
  intro m hm
  have hstored := h.stored m hm
  rw [hstored] at hn
  rcases List.mem_pair.1 hn with heq | heq
  · cases heq
  · exact absurd (Option.some.inj heq ▸ hm) (h.fired n (Multiset.mem_cons_self _ _)).1

theorem fire {n : ℕ} (h : OneTimer s fired) (hn : n ∈ s.timers.armed) :
    OneTimer { s with timers := s.timers.stop n } (n ::ₘ fired) := by
  refine ⟨fun m hm => h.stored m (mem_erase.1 hm).2, h.quiet, ?_⟩
  intro m hm
  rcases Multiset.mem_cons.1 hm with rfl | hm
  · exact ⟨fun hmem => (mem_erase.1 hmem).1 rfl, s.timers.lt_next m hn⟩
  · obtain ⟨hnot, hlt⟩ := h.fired m hm
    exact ⟨fun hmem => hnot (mem_erase.1 hmem).2, hlt⟩

/-- A callback in time and every other step leave at most one timer. -/
theorem advance (h : OneTimer s (a.fired?.elim fired (· ::ₘ fired)))
    (hintime : ∀ n, a.fired? = some n → s.retryTimer ∈ [none, some n])
    (hstep : s.advance round a = some (t, b)) : OneTimer t (b.fired?.elim fired (· ::ₘ fired)) := by
  cases a with
  | returned => cases hstep
  | attaching skey notify =>
    cases hstep
    split_ifs <;> exact h.attach skey notify
  | arming notify urls =>
    cases hstep
    exact h.scheduleMetadataRetry
  | adding notify urls =>
    cases urls with
    | nil =>
      cases hstep
      exact h
    | cons url urls =>
      cases hstep
      exact h.congr rfl rfl rfl rfl
  | removing skey =>
    cases hstep
    exact h.removeListener skey
  | changing serviceName instances =>
    cases hstep
    exact h.congr rfl rfl rfl rfl
  | refreshing | building insts cached =>
    rw [State.advance] at hstep
    split_ifs at hstep
    cases hstep
    exact h.congr rfl rfl rfl rfl
  | notifying newServiceURLs lsts =>
    cases lsts with
    | nil =>
      cases hstep
      exact h
    | cons lst lsts =>
      cases hstep
      exact h.congr rfl rfl rfl rfl
  | finishing =>
    cases hstep
    exact h.scheduleMetadataRetry.congr rfl rfl rfl rfl
  | firing n =>
    cases hstep
    split_ifs <;> exact h.callback (hintime n rfl)
  | stopping =>
    cases hstep
    exact of_stop h.stored h.fired

end OneTimer

end State

namespace System

/-- The callback of a timer runs when `retryTimer` is nil or that timer. -/
def InTime (s : System) : Action → Prop
  | .advance i _ => ∀ n ∈ s.threads[i]?.bind Stage.fired?, s.shared.retryTimer ∈ [none, some n]
  | _ => True

instance InTime.decidable (s : System) (action : Action) : Decidable (InTime s action) :=
  match action with
  | .advance _ _ => inferInstanceAs (Decidable (∀ n ∈ Option.bind _ _, _ ∈ [none, some n]))
  | .call _ => inferInstanceAs (Decidable True)
  | .fire _ => inferInstanceAs (Decidable True)

theorem oneTimer {rid : Str} {s : System} (h : ReachedBy step (· = idle rid) InTime s) :
    s.shared.OneTimer ((s.threads : Multiset Stage).filterMap Stage.fired?) := by
  refine ReachedBy.invariant
    (fun s => s.shared.OneTimer ((s.threads : Multiset Stage).filterMap Stage.fired?)) ?_ ?_ h
  · rintro s rfl
    exact ⟨fun n hn => absurd hn notMem_empty, fun _ => rfl, fun n hn => absurd hn (Multiset.notMem_zero n)⟩
  · intro s act t hs hcondition hstep
    cases act with
    | call req =>
      cases hstep
      rw [Pool.coe_threads_spawn, filterMap_cons_elim]
      cases req <;> exact hs
    | fire n =>
      rw [step] at hstep
      split_ifs at hstep with hn
      cases hstep
      rw [Pool.coe_threads_spawn, filterMap_cons_elim]
      exact hs.fire hn
    | advance i round =>
      obtain ⟨a, b, others, hi, hadvance, hthreads, hthreads'⟩ := Pool.advance_cases hstep
      rw [hthreads, filterMap_cons_elim] at hs
      rw [hthreads', filterMap_cons_elim]
      refine hs.advance ?_ hadvance
      intro n hn
      exact hcondition n (by rw [hi]; exact hn)

/-- At most one timer is armed, and it is the one in `retryTimer`; none is once the listener is closed or
has no notify listeners. -/
theorem armed_eq_retryTimer {registryId : Str} {s : System} (h : ReachedBy step (· = idle registryId) InTime s) :
    s.shared.timers.armed.keys.card ≤ 1 ∧ (∀ n ∈ s.shared.timers.armed, s.shared.retryTimer = some n) ∧
      (s.shared.closed = true ∨ s.shared.listeners = ∅ → s.shared.timers.armed = ∅) := by
  have hs := oneTimer h
  refine ⟨?_, hs.stored, ?_⟩
  · rw [Finset.card_le_one]
    intro m hm n hn
    have hm := hs.stored m (mem_keys.1 hm)
    have hn := hs.stored n (mem_keys.1 hn)
    exact Option.some.inj (hm.symm.trans hn)
  · intro hquiet
    have hnone := hs.quiet hquiet
    apply ext_lookup
    intro n
    rw [lookup_empty, lookup_eq_none]
    intro hn
    have hstored := hs.stored n hn
    rw [hnone] at hstored
    cases hstored

def noAnswer : Round where
  apps := [str "greeter"]
  fetch := fun _ => .error
  range := fun _ => id
  perm := Round.perm_id
  groups := fun _ => []
  listeners := []

/-- Goroutine `i` makes a call and takes `n` steps. -/
def begin (request : Request) (i n : ℕ) : List Action :=
  .call request :: List.replicate n (.advance i noAnswer)

/-- An instance has no metadata when a notify listener attaches: a timer is armed. -/
def attachUnresolved : List Action :=
  List.flatten [
    begin (.onEvent (str "greeter") [instanceAt (str "10.0.0.1")]) 0 5,
    begin (.addListenerAndNotify greeterKey 0) 1 3]

theorem attachUnresolved_armed : ∃ s, ReachedBy step (· = idle (str "default")) InTime s ∧
    0 ∈ s.shared.timers.armed ∧ s.shared.timers.armed.keys.card ≤ 1 ∧
      (∀ n ∈ s.shared.timers.armed, s.shared.retryTimer = some n) ∧
      (s.shared.closed = true ∨ s.shared.listeners = ∅ → s.shared.timers.armed = ∅) := by
  obtain ⟨s, hreached, hmem⟩ := ReachedBy.of_run step InTime (idle (str "default")) attachUnresolved
    (fun s => 0 ∈ s.shared.timers.armed) (by decide +kernel)
  exact ⟨s, hreached, hmem, armed_eq_retryTimer hreached⟩

/-- The timer fires.  Before its callback runs, the notify listener leaves and comes back, for which
another timer is armed; and after that it leaves for good. -/
def lateCallback : List Action :=
  List.flatten [
    attachUnresolved,
    [.fire 0],
    begin (.removeListener greeterKey) 3 1,
    begin (.addListenerAndNotify greeterKey 0) 4 3,
    [.advance 2 noAnswer],
    begin (.removeListener greeterKey) 5 1]

/-- The second timer is armed when the listener has nobody to notify, and it is not the one stored. -/
theorem lateCallback_loses_timer : ∃ s,
    ReachedBy step (· = idle (str "default")) (fun _ _ => True) s ∧ 1 ∈ s.shared.timers.armed ∧
      s.shared.retryTimer = none ∧ s.shared.listeners = ∅ :=
  ReachedBy.of_run step (fun _ _ => True) (idle (str "default")) lateCallback
    (fun s => 1 ∈ s.shared.timers.armed ∧ s.shared.retryTimer = none ∧ s.shared.listeners = ∅)
    (by decide +kernel)

end System

end DubboGo.Registry.InstancesListener
