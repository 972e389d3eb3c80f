import DubboGo.Lib.Pool

/-!
# The adaptive limiter

`HillClimbing` of `filter/adaptivesvc/limiter/hill_climbing.go`.  A step of a caller is one operation on an
atomic variable.  The limitation that `adjustLimitation` stores is computed with floating point numbers; here
it is any number.
-/

namespace DubboGo.Filter.HillClimbing

open Lib Multiset

/-- The atomic variables of a `HillClimbing` that admission depends on. -/
structure Limiter where
  limitation : ℕ
  inflight : ℤ
  deriving DecidableEq

def initialLimitation : ℕ := 50

inductive Stage where
  /-- `Remaining` is to load the limitation. -/
  | acquiring
  /-- It has loaded the limitation, and is to load what is in flight. -/
  | comparing (limitation : ℕ)
  /-- `NewHillClimbingUpdater` is to add the call. -/
  | adding (limitation : ℕ)
  | refused
  | granted
  /-- `DoUpdate` has adjusted the limitation, and its deferred `Dec` is next. -/
  | updated
  | finished
  deriving DecidableEq

namespace Stage

def isGranted : Stage → Bool
  | .granted | .updated => true
  | _ => false

def isAdding : Stage → Bool
  | .adding _ => true
  | _ => false

def isComparing : Stage → Bool
  | .comparing _ => true
  | _ => false

end Stage

/-- The next step of a caller; `adjusted` is the limitation that `DoUpdate` stores, if it does. -/
def advance (adjusted : Option ℕ) (l : Limiter) : Stage → Option (Limiter × Stage)
  | .acquiring => some (l, .comparing l.limitation)
  | .comparing limitation => some (l, if limitation ≤ l.inflight then .refused else .adding limitation)
  | .adding _ => some ({ l with inflight := l.inflight + 1 }, .granted)
  | .refused => none
  | .granted => some ({ l with limitation := adjusted.getD l.limitation }, .updated)
  | .updated => some ({ l with inflight := l.inflight - 1 }, .finished)
  | .finished => none

inductive Action where
  | acquire
  | advance (i : ℕ) (adjusted : Option ℕ)

abbrev System := Pool Limiter Stage

/-- `NewHillClimbing`. -/
def new : System where
  shared := ⟨initialLimitation, 0⟩
  threads := []

def step (s : System) : Action → Option System
  | .acquire => some (s.spawn s.shared .acquiring)
  | .advance i adjusted => s.advance (advance adjusted) i

/-- No caller loads what is in flight while another is between its comparison and its addition. -/
def Undisturbed (s : System) : Action → Prop
  | .acquire => True
  | .advance i _ => s.threads[i]?.any Stage.isComparing = true → ∀ stage ∈ s.threads, stage.isAdding = false

instance decidableUndisturbed (s : System) (action : Action) : Decidable (Undisturbed s action) :=
  match action with
  | .acquire => inferInstanceAs (Decidable True)
  | .advance _ _ => inferInstanceAs (Decidable (_ → _))

variable {l l' : Limiter} {stages : Multiset Stage} {a b : Stage} {adjusted : Option ℕ} {s : System}

/-! ## The counter -/

theorem advance_inflight (h : advance adjusted l a = some (l', b)) :
    l'.inflight - b.isGranted.toNat = l.inflight - a.isGranted.toNat := by
  cases a <;> cases h <;> simp [Stage.isGranted]
  split_ifs <;> rfl

theorem inflight_eq {cond : System → Action → Prop} (hs : ReachedBy step (· = new) cond s) :
    s.shared.inflight = tally Stage.isGranted s.threads := by
  refine ReachedBy.invariant (fun s : System => s.shared.inflight = tally Stage.isGranted s.threads) ?_ ?_ hs
  · rintro s rfl
    rfl
  · rintro s act t h - hstep
    cases act with
    | acquire =>
      cases hstep
      rw [Pool.coe_threads_spawn, tally_cons]
      exact h
    | advance i adjusted =>
      obtain ⟨a, b, others, -, hadvance, hthreads, hthreads'⟩ := Pool.advance_cases hstep
      have hinflight := advance_inflight hadvance
      rw [hthreads, tally_cons] at h
      rw [hthreads', tally_cons]
      omega

/-! ## Admission -/

structure Roomy (l : Limiter) (stages : Multiset Stage) : Prop where
  sole : tally Stage.isAdding stages ≤ 1
  room : ∀ limitation : ℕ, .adding limitation ∈ stages → l.inflight < limitation

namespace Roomy

theorem move (h : Roomy l (a ::ₘ stages)) (hb : b.isAdding = false) (hl : l'.inflight ≤ l.inflight) :
    Roomy l' (b ::ₘ stages) := by
  obtain ⟨hsole, hroom⟩ := h
  refine ⟨?_, fun lim hmem => lt_of_le_of_lt hl (hroom lim ?_)⟩
  · simp only [tally_cons, hb, Bool.toNat_false] at hsole ⊢
    omega
  · rcases mem_cons.1 hmem with rfl | hmem
    · cases hb
    · exact mem_cons_of_mem hmem

theorem advance (h : Roomy l (a ::ₘ stages)) (halone : a.isComparing = true → ∀ st ∈ stages, st.isAdding = false)
    (hstep : advance adjusted l a = some (l', b)) : Roomy l' (b ::ₘ stages) := by
  cases a with
  | acquiring | granted =>
    cases hstep
    exact h.move rfl le_rfl
  | comparing lim =>
    cases hstep
    split_ifs with hfull
    · exact h.move rfl le_rfl
    · have hnone := halone rfl
      refine ⟨?_, ?_⟩
      · rw [tally_cons, tally_eq_zero_iff.2 hnone]
        rfl
      · intro lim' hmem
        rcases mem_cons.1 hmem with heq | hmem
        · cases heq
          omega
        · cases hnone _ hmem
  | adding lim =>
    -- it was the only one
    cases hstep
    have hsole := h.sole
    rw [tally_cons] at hsole
    have hnone : tally Stage.isAdding stages = 0 := by
      simp only [Stage.isAdding, Bool.toNat_true] at hsole
      omega
    refine ⟨?_, ?_⟩
    · rw [tally_cons, hnone]
      exact Nat.zero_le 1
    · intro lim' hmem
      rcases mem_cons.1 hmem with heq | hmem
      · cases heq
      · cases tally_eq_zero_iff.1 hnone _ hmem
  | updated =>
    cases hstep
    exact h.move rfl (Int.sub_le_self _ Int.one_nonneg)
  | refused | finished => cases hstep

end Roomy

theorem roomy (hs : ReachedBy step (· = new) Undisturbed s) : Roomy s.shared s.threads := by
  refine ReachedBy.invariant (fun s => Roomy s.shared s.threads) ?_ ?_ hs
  · rintro s rfl
    exact ⟨Nat.zero_le 1, fun _ hmem => absurd hmem (notMem_zero _)⟩
  · intro s act t h hcondition hstep
    cases act with
    | acquire =>
      cases hstep
      rw [Pool.coe_threads_spawn]
      refine ⟨?_, fun lim hmem => h.room lim (by simpa using hmem)⟩
      exact h.sole
    | advance i adjusted =>
      obtain ⟨a, b, others, hi, hadvance, hthreads, hthreads'⟩ := Pool.advance_cases hstep
      rw [hthreads] at h
      rw [hthreads']
      refine h.advance (fun ha st hstage => ?_) hadvance
      have hmem : st ∈ (s.threads : Multiset Stage) := hthreads ▸ mem_cons_of_mem hstage
      exact hcondition (by rw [hi]; exact ha) st (mem_coe.1 hmem)

/-- What is in flight never goes below zero; and the calls granted and not finished, with the one being granted, keep
the limitation that was read for it, if comparisons and additions do not overlap. -/
theorem admissions_within_limitation (s : System) :
    (ReachedBy step (· = new) (fun _ _ => True) s → 0 ≤ s.shared.inflight) ∧
    (ReachedBy step (· = new) Undisturbed s → ∀ i adjusted t limitation,
      step s (.advance i adjusted) = some t → s.threads[i]? = some (.adding limitation) →
        tally Stage.isGranted t.threads ≤ limitation) := by
  refine ⟨fun hs => (inflight_eq hs).ge.trans' (Int.natCast_nonneg _), ?_⟩
  intro hs i adjusted t limitation hstep hi
  obtain ⟨a, b, others, hi', hadvance, hthreads, hthreads'⟩ := Pool.advance_cases hstep
  cases hi.symm.trans hi'
  obtain ⟨-, rfl⟩ := Prod.mk.inj (Option.some.inj hadvance)
  have hroom := (roomy hs).room limitation (hthreads ▸ mem_cons_self _ _)
  have hinflight := inflight_eq hs
  rw [hthreads, tally_cons] at hinflight
  rw [hthreads', tally_cons]
  simp only [Stage.isGranted, Bool.toNat_false, Bool.toNat_true] at hinflight ⊢
  omega

/-! ## Callers that overlap -/

def acquireAlone (i : ℕ) : List Action := [.acquire, .advance i none, .advance i none, .advance i none]

/-- The fiftieth of callers that do not overlap is granted the last of fifty calls. -/
theorem admissions_within_limitation_full :
    ∃ s t, ReachedBy step (· = new) Undisturbed s ∧ step s (.advance 49 none) = some t ∧
      49 < tally Stage.isGranted t.threads ∧ tally Stage.isGranted t.threads ≤ 50 := by
  obtain ⟨s, hs, hi, hstep⟩ := ReachedBy.of_run step Undisturbed new
    ((List.range 49).flatMap acquireAlone ++ [.acquire, .advance 49 none, .advance 49 none])
    (fun s => s.threads[49]? = some (.adding 50) ∧
      (step s (.advance 49 none)).any (fun t => 49 < tally Stage.isGranted t.threads) = true) (by decide +kernel)
  obtain ⟨t, ht, hgranted⟩ := (Option.any_eq_true _ _).1 hstep
  exact ⟨s, t, hs, ht, of_decide_eq_true hgranted, (admissions_within_limitation s).2 hs 49 none t 50 ht hi⟩

/-- Forty-nine callers, then two that both compare before either adds its call: the last is granted
although fifty-one calls are in flight then, and the limitation that was read for it is fifty. -/
theorem overlapping_acquires_exceed_limit :
    ∃ s t, ReachedBy step (· = new) (fun _ _ => True) s ∧ step s (.advance 50 none) = some t ∧
      s.threads[50]? = some (.adding 50) ∧ tally Stage.isGranted t.threads = 51 := by
  obtain ⟨s, hs, hi, hstep⟩ := ReachedBy.of_run step (fun _ _ => True) new
    ((List.range 49).flatMap acquireAlone ++ [.acquire, .acquire, .advance 49 none, .advance 50 none,
      .advance 49 none, .advance 50 none, .advance 49 none])
    (fun s => s.threads[50]? = some (.adding 50) ∧
      (step s (.advance 50 none)).any (fun t => tally Stage.isGranted t.threads = 51) = true) (by decide +kernel)
  obtain ⟨t, ht, hgranted⟩ := (Option.any_eq_true _ _).1 hstep
  exact ⟨s, t, hs, ht, hi, of_decide_eq_true hgranted⟩

end DubboGo.Filter.HillClimbing
